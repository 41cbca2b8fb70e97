import Mathlib.Data.List.Perm.Subperm
import PlayerLookup.Proofs.Cache.Agreement
import PlayerLookup.Proofs.Foundations.Sections

/-! What a cache gives to a read while others store. A memory keeps its lock for the whole of a
read, so that the read sees one moment. A connection takes its lock anew for each of its queries: a
read that takes one query sees one moment, a longer one sees a moment for each of its queries. -/

set_option autoImplicit false

namespace PlayerLookup

open Storage (Column Row Fault Database)

variable {σ : Type}

/-- A cache with the sections of its reads. -/
structure Guarded (c : Cache σ) where
  getAll : List PlayerId → Sections σ (List Profile)
  getAllByName : List String → Sections σ (List Profile)
  alone_getAll : ∀ ids, (getAll ids).alone = c.getAll ids
  alone_getAllByName : ∀ names, (getAllByName names).alone = c.getAllByName names

/-- A memory has its lock from the start of a read to its end. -/
def Guarded.memory (cell : Cell σ Memory) : Guarded (Cache.memory cell) where
  getAll ids := .ofLookup ((Cache.memory cell).getAll ids)
  getAllByName names := .ofLookup ((Cache.memory cell).getAllByName names)
  alone_getAll _ := Sections.alone_ofLookup _
  alone_getAllByName _ := Sections.alone_ofLookup _

namespace Connection

variable (c : Connection σ)

/-! ## The sections of a read -/

/-- Each part of the keys is asked for in a section. -/
def partSections (column : Column) :
    List (List String) → Sections σ (Except Fault (List Profile))
  | [] => .ended (.ok (.ok []))
  | keys :: rest => (Sections.ofLookup (c.selectParts column [keys])).bind fun
    | .error fault => .ended (.ok (.error fault))
    | .ok found => (partSections column rest).bind fun
      | .error fault => .ended (.ok (.error fault))
      | .ok more => .ended (.ok (.ok (found ++ more)))

def selectSections (column : Column) (attempted : String) (keys : List String) :
    Sections σ (List Profile) :=
  (c.partSections column (Batch.chunks keysPerQuery (Batch.unique keys))).bind fun
    | .ok found => .ended (.ok (Batch.latestBy Profile.id found))
    | .error fault => .ofLookup do
      c.warnFault attempted fault
      return []

theorem alone_partSections (column : Column) (parts : List (List String)) :
    (c.partSections column parts).alone = c.selectParts column parts := by
  induction parts with
  | nil => rfl
  | cons keys rest ih =>
    rw [partSections, Sections.alone_bind, Sections.alone_ofLookup, selectParts, selectParts,
      bind_assoc]
    refine congrArg (c.database >>= ·) (funext fun db => ?_)
    cases db.bind (Database.select · c.title column keys) with
    | error fault => rfl
    | ok rows =>
      dsimp only
      rw [bind_assoc]
      refine congrArg (c.decode rows >>= ·) (funext fun found => ?_)
      rw [pure_bind, pure_bind, List.append_nil]
      dsimp only
      rw [Sections.alone_bind, ih]
      refine congrArg (c.selectParts column rest >>= ·) (funext fun more => ?_)
      cases more <;> rfl

theorem alone_selectSections (column : Column) (attempted : String) (keys : List String) :
    (c.selectSections column attempted keys).alone = c.select column attempted keys := by
  rw [selectSections, Sections.alone_bind, alone_partSections, select]
  refine congrArg (c.selectParts column _ >>= ·) (funext fun found => ?_)
  cases found with
  | error fault => exact Sections.alone_ofLookup _
  | ok found => rfl

end Connection

/-- A connection has its lock for one query at a time. -/
def Guarded.stored (c : Connection σ) : Guarded (Cache.stored c) where
  getAll ids := c.selectSections .uuid "read profiles from" (ids.map PlayerId.text)
  getAllByName names := (c.selectSections .name "read profiles by name from" names).bind
    fun found => .ended (.ok (Batch.latestBy (·.name.text) found))
  alone_getAll _ := c.alone_selectSections _ _ _
  alone_getAllByName names := by
    rw [Sections.alone_bind, c.alone_selectSections]
    rfl

namespace Connection

variable (c : Connection σ)

/-! ## What the sections see -/

/-- The database behind the connection, in a state. -/
def databaseAt (s : σ) : Except Fault Database :=
  if c.opened.get s then (c.content.get s).tables else .error .closed

/-- The profiles in its rows with one of the keys. -/
def part (column : Column) (keys : List String) (s : σ) : Except Fault (List Profile) :=
  ((c.databaseAt s).bind (Database.select · c.title column keys)).map
    (·.filterMap profileOfRow?)

/-- The profiles found part by part, in one state for each part, up to the first fault. -/
def partsIn (column : Column) :
    List (List String) → (Nat → σ) → Except Fault (List Profile)
  | [], _ => .ok []
  | keys :: rest, states => do
    let found ← c.part column keys (states 0)
    let more ← partsIn column rest fun i => states (i + 1)
    return found ++ more

/-- What a read gives that sees these states, one for each of its queries: the last profile of each
player, and nothing at all after a fault. -/
def foundIn (column : Column) (keys : List String) (states : Nat → σ) : List Profile :=
  match c.partsIn column (Batch.chunks keysPerQuery (Batch.unique keys)) states with
  | .ok found => Batch.latestBy Profile.id found
  | .error _ => []

variable {c} {column : Column}

theorem decode_yields (rows : List Row) (s : σ) :
    (c.decode rows).Yields s s (rows.filterMap profileOfRow?) := by
  induction rows with
  | nil => exact Lookup.yields_pure [] s
  | cons row rest ih =>
    rw [decode, List.filterMap_cons]
    cases profileOfRow? row with
    | some p => exact ih.bind (Lookup.yields_pure _ s)
    | none => exact (Lookup.yields_log ..).bind ih

theorem selectParts_yields (keys : List String) (s : σ) :
    (c.selectParts column [keys]).Yields s s (c.part column keys s) := by
  have hdatabase : c.database.Yields s s (c.databaseAt s) := ⟨[], rfl⟩
  rw [selectParts, part]
  refine hdatabase.bind ?_
  cases (c.databaseAt s).bind (Database.select · c.title column keys) with
  | error fault => exact Lookup.yields_pure _ s
  | ok rows =>
    have hnone : (c.selectParts column []).Yields s s (.ok []) := Lookup.yields_pure _ s
    refine (decode_yields rows s).bind (hnone.bind ?_)
    change Lookup.Yields (pure (Except.ok (rows.filterMap profileOfRow? ++ []))) s s _
    rw [List.append_nil]
    exact Lookup.yields_pure _ s

theorem part_of_stores {s : σ} {ps : List Profile} (h : c.Stores s true ps) (column : Column)
    (keys : List String) : ∃ found, c.part column keys s = .ok found ∧
      ∀ p, p ∈ found ↔ p ∈ ps ∧ column.of p ∈ keys := by
  obtain ⟨found, hrun, hmem⟩ := selectParts_run_open h column [keys]
  obtain ⟨events, hyields⟩ := selectParts_yields keys s
  rw [hyields] at hrun
  refine ⟨found, Except.ok.inj (Run.mk.inj hrun).2.2, fun p => ?_⟩
  rw [hmem, List.flatten_singleton]

theorem reads_partSections (parts : List (List String)) :
    (c.partSections column parts).Reads := by
  induction parts with
  | nil => trivial
  | cons keys rest ih =>
    refine (Sections.reads_ofLookup fun s => ?_).bind fun found => ?_
    · obtain ⟨events, hrun⟩ := selectParts_yields keys s
      rw [hrun]
    · cases found with
      | error fault => trivial
      | ok found =>
        refine ih.bind fun more => ?_
        cases more <;> trivial

theorem seen_partSections (parts : List (List String)) (states : Nat → σ) :
    (c.partSections column parts).seen states = .ok (c.partsIn column parts states) := by
  induction parts generalizing states with
  | nil => rfl
  | cons keys rest ih =>
    obtain ⟨events, hrun⟩ := selectParts_yields keys (states 0)
    rw [partSections, Sections.seen_ofLookup_bind, hrun, partsIn]
    change Sections.seen _ _ = _
    cases c.part column keys (states 0) with
    | error fault => rfl
    | ok found =>
      refine (Sections.seen_bind (fun more => .ok (more.map (found ++ ·))) (fun more _ => ?_)
        _).trans ?_
      · cases more <;> rfl
      · rw [ih]
        rfl

theorem reads_selectSections (attempted : String) (keys : List String) :
    (c.selectSections column attempted keys).Reads := by
  refine (reads_partSections _).bind fun found => ?_
  cases found with
  | error fault => exact Sections.reads_ofLookup fun s => rfl
  | ok found => trivial

theorem seen_selectSections (attempted : String) (keys : List String) (states : Nat → σ) :
    (c.selectSections column attempted keys).seen states = .ok (c.foundIn column keys states) := by
  refine (Sections.seen_bind (fun found => .ok (match found with
    | .ok found => Batch.latestBy Profile.id found
    | .error _ => [])) (fun found _ => ?_) states).trans ?_
  · cases found <;> rfl
  · rw [seen_partSections]
    rfl

theorem partsIn_congr {parts : List (List String)} {states states' : Nat → σ}
    (h : ∀ i < parts.length, states i = states' i) :
    c.partsIn column parts states = c.partsIn column parts states' := by
  induction parts generalizing states states' with
  | nil => rfl
  | cons keys rest ih =>
    have hrest : c.partsIn column rest (fun i => states (i + 1)) =
        c.partsIn column rest fun i => states' (i + 1) :=
      ih fun i hi => h (i + 1) (Nat.succ_lt_succ hi)
    rw [partsIn, partsIn, h 0 (Nat.succ_pos _), hrest]

theorem partsIn_cons_of_ok {keys : List String} {rest : List (List String)} {states : Nat → σ}
    {found more : List Profile} (h : c.part column keys (states 0) = .ok found)
    (hrest : c.partsIn column rest (fun i => states (i + 1)) = .ok more) :
    c.partsIn column (keys :: rest) states = .ok (found ++ more) := by
  rw [partsIn, h, hrest]
  rfl

/-- No call of another comes between the queries that a read of so many keys takes. -/
def Undisturbed (turns : List (LockTurn (List Profile))) (keys : Nat) : Prop :=
  ∀ i, i * keysPerQuery < keys → LockTurn.moments turns i = LockTurn.moments turns 0

theorem undisturbed_of_le (turns : List (LockTurn (List Profile))) {keys : Nat}
    (h : keys ≤ keysPerQuery) : Undisturbed turns keys := by
  intro i hi
  obtain rfl : i = 0 := by
    rw [keysPerQuery] at hi h
    omega
  rfl

theorem Undisturbed.foundIn_eq {turns : List (LockTurn (List Profile))} {n : Nat}
    (h : Undisturbed turns n) {keys : List String} (hn : (Batch.unique keys).length ≤ n) (s : σ) :
    c.foundIn column keys (LockTurn.stateAt c.putAll s turns) =
      c.foundIn column keys fun _ => LockTurn.stateAt c.putAll s turns 0 := by
  have hsame : c.partsIn column (Batch.chunks keysPerQuery (Batch.unique keys))
      (LockTurn.stateAt c.putAll s turns) =
        c.partsIn column (Batch.chunks keysPerQuery (Batch.unique keys))
          fun _ => LockTurn.stateAt c.putAll s turns 0 := by
    refine partsIn_congr fun i hi => ?_
    have hsize : 1 ≤ keysPerQuery := by decide
    rw [Batch.length_chunks hsize, Nat.lt_div_iff_mul_lt hsize] at hi
    rw [LockTurn.stateAt, LockTurn.stateAt, h i (by omega)]
  rw [foundIn, foundIn, hsame]

theorem length_unique_texts (ids : List PlayerId) :
    (Batch.unique (ids.map PlayerId.text)).length ≤ ids.eraseDups.length := by
  have hsub : Batch.unique (ids.map PlayerId.text) ⊆ ids.eraseDups.map PlayerId.text := by
    intro text htext
    obtain ⟨id, hid, rfl⟩ := List.mem_map.mp ((Batch.mem_unique _ text).mp htext)
    exact List.mem_map_of_mem (List.mem_eraseDups.mpr hid)
  have hlength := (List.subperm_of_subset (Batch.nodup_unique _) hsub).length_le
  rwa [List.length_map] at hlength

end Connection

/-! ## Reads amid writes -/

variable {c : Cache σ}

/-- A read, with others storing before it, between its sections and after them, gives what it would
have given at one moment between their calls, if the number of its keys is such a one. -/
structure Guarded.ReadsOneMoment (g : Guarded c) (suits : Nat → Prop)
    (turns : List (LockTurn (List Profile))) (s : σ) : Prop where
  by_id : ∀ ids, suits ids.eraseDups.length →
    Sections.OneMoment c.putAll turns s (g.getAll ids) (c.getAll ids)
  by_name : ∀ names, suits names.eraseDups.length →
    Sections.OneMoment c.putAll turns s (g.getAllByName names) (c.getAllByName names)

theorem Guarded.ReadsOneMoment.of_imp {g : Guarded c} {suits suits' : Nat → Prop}
    {turns : List (LockTurn (List Profile))} {s : σ} (h : g.ReadsOneMoment suits turns s)
    (himp : ∀ n, suits' n → suits n) : g.ReadsOneMoment suits' turns s :=
  ⟨fun ids hids => h.by_id ids (himp _ hids), fun names hnames => h.by_name names (himp _ hnames)⟩

/-- A read through a connection, with others storing, gives what its queries found, each of them at
the moment when it had the lock; these moments follow one another. -/
structure Connection.ReadsEachQuery (c : Connection σ) (turns : List (LockTurn (List Profile)))
    (s : σ) : Prop where
  in_order : Monotone (LockTurn.moments turns)
  by_id : ∀ ids, ((((Guarded.stored c).getAll ids).amid c.putAll turns).run s).result =
    .ok (c.foundIn .uuid (ids.map PlayerId.text) (LockTurn.stateAt c.putAll s turns))
  by_name : ∀ names, ((((Guarded.stored c).getAllByName names).amid c.putAll turns).run s).result =
    .ok (Batch.latestBy (·.name.text)
      (c.foundIn .name names (LockTurn.stateAt c.putAll s turns)))

theorem Guarded.memory_readsOneMoment (cell : Cell σ Memory)
    (turns : List (LockTurn (List Profile))) (s : σ) :
    (Guarded.memory cell).ReadsOneMoment (fun _ => True) turns s := by
  have hreads {α : Type} (f : Memory → α) :
      (Sections.ofLookup (do return f (← cell.read)) : Sections σ α).Reads :=
    Sections.reads_ofLookup fun _ => rfl
  exact ⟨fun ids _ => (hreads (·.profiles ids)).oneMoment turns s rfl,
    fun names _ => (hreads (·.holders names)).oneMoment turns s rfl⟩

namespace Connection

variable {c : Connection σ}

theorem reads_stored_ids (ids : List PlayerId) : ((Guarded.stored c).getAll ids).Reads :=
  reads_selectSections _ _

theorem seen_stored_ids (ids : List PlayerId) (states : Nat → σ) :
    ((Guarded.stored c).getAll ids).seen states =
      .ok (c.foundIn .uuid (ids.map PlayerId.text) states) :=
  seen_selectSections _ _ states

theorem reads_stored_names (names : List String) :
    ((Guarded.stored c).getAllByName names).Reads :=
  (reads_selectSections _ _).bind fun _ => trivial

theorem seen_stored_names (names : List String) (states : Nat → σ) :
    ((Guarded.stored c).getAllByName names).seen states =
      .ok (Batch.latestBy (·.name.text) (c.foundIn .name names states)) := by
  refine (Sections.seen_bind (fun found => .ok (Batch.latestBy (·.name.text) found))
    (fun _ _ => rfl) states).trans ?_
  rw [seen_selectSections]
  rfl

theorem stored_readsOneMoment (c : Connection σ) (turns : List (LockTurn (List Profile))) (s : σ) :
    (Guarded.stored c).ReadsOneMoment (Undisturbed turns) turns s where
  by_id ids hsuits := by
    rw [← (Guarded.stored c).alone_getAll]
    refine (reads_stored_ids ids).oneMoment turns s ?_
    rw [seen_stored_ids, seen_stored_ids]
    exact congrArg Except.ok (hsuits.foundIn_eq (length_unique_texts ids) s)
  by_name names hsuits := by
    have hn : (Batch.unique names).length ≤ names.eraseDups.length := by
      rw [Batch.unique_eq_eraseDups]
    rw [← (Guarded.stored c).alone_getAllByName]
    refine (reads_stored_names names).oneMoment turns s ?_
    rw [seen_stored_names, seen_stored_names]
    exact congrArg (fun found => Except.ok (Batch.latestBy (·.name.text) found))
      (hsuits.foundIn_eq hn s)

theorem readsEachQuery (c : Connection σ) (turns : List (LockTurn (List Profile))) (s : σ) :
    c.ReadsEachQuery turns s where
  in_order := LockTurn.moments_mono turns
  by_id ids := by
    rw [(reads_stored_ids ids).result_amid]
    exact seen_stored_ids ids _
  by_name names := by
    rw [(reads_stored_names names).result_amid]
    exact seen_stored_names names _

end Connection

/-- **A read sees one moment for each query.** Whatever others store meanwhile, a read of a memory
gives what it would give at one moment between their calls. So does a read through a connection if
it takes one query, or if nobody comes between its queries; any other gives what its queries find
one after the other. -/
theorem reads_amid_writes (cell : Cell σ Memory) (connection : Connection σ)
    (turns : List (LockTurn (List Profile))) (s : σ) :
    (Guarded.memory cell).ReadsOneMoment (fun _ => True) turns s ∧
      (Guarded.stored connection).ReadsOneMoment
        (fun keys => keys ≤ keysPerQuery ∨ Connection.Undisturbed turns keys) turns s ∧
      connection.ReadsEachQuery turns s :=
  ⟨Guarded.memory_readsOneMoment cell turns s,
    (connection.stored_readsOneMoment turns s).of_imp fun _ h =>
      h.elim (Connection.undisturbed_of_le turns) id,
    connection.readsEachQuery turns s⟩

/-! ## A read that takes two queries -/

namespace Torn

def connection : Connection (Bool × Storage.Content) := ⟨"cache.db", defaultTitle, .first, .second⟩

def state : Bool × Storage.Content := (true, .database [.ofProfiles defaultTitle []])

def first : Profile := ⟨⟨1⟩, .ash⟩

def last : Profile := ⟨⟨501⟩, .birch⟩

def idOf (i : Nat) : PlayerId := ⟨BitVec.ofNat 128 (i + 1)⟩

def ids : List PlayerId := (List.range (keysPerQuery + 1)).map idOf

def turns : List (LockTurn (List Profile)) := [.own, .other [first, last], .own]

theorem idOf_injOn : ∀ i ∈ List.range (keysPerQuery + 1), ∀ j ∈ List.range (keysPerQuery + 1),
    idOf i = idOf j → i = j := by
  intro i hi j hj h
  have hbits := congrArg (fun id => id.bits.toNat) h
  simp only [idOf, BitVec.toNat_ofNat] at hbits
  rw [List.mem_range, keysPerQuery] at hi hj
  omega

theorem parts_eq : Batch.chunks keysPerQuery (Batch.unique (ids.map PlayerId.text)) =
    [((List.range keysPerQuery).map idOf).map PlayerId.text, [last.id.text]] := by
  have hnodup : (ids.map PlayerId.text).Nodup :=
    (List.nodup_range.map_on idOf_injOn).map fun _ _ => PlayerId.text_injective
  have hlength : (((List.range keysPerQuery).map idOf).map PlayerId.text).length =
      keysPerQuery := by
    rw [List.length_map, List.length_map, List.length_range]
  rw [Batch.unique_of_nodup hnodup, ids, List.range_succ, List.map_append, List.map_append,
    Batch.chunks_append (by decide) hlength, Batch.chunks_of_length_le (by simp) (by decide)]
  rfl

def after : Bool × Storage.Content := (connection.putAll [first, last] state).state

theorem stores_state : connection.Stores state true [] := ⟨rfl, rfl⟩

theorem stores_after : connection.Stores after true [first, last] := by
  obtain ⟨t, hrun, ht, -⟩ := Connection.putAll_run_open (fun _ _ => rfl) stores_state [first, last]
  have hafter : after = t := congrArg Run.state hrun
  rw [hafter]
  exact ht

theorem read_result : ((((Guarded.stored connection).getAll ids).amid connection.putAll
    turns).run state).result = .ok [last] := by
  have hfirst : connection.part .uuid (((List.range keysPerQuery).map idOf).map PlayerId.text)
      state = .ok [] := by
    obtain ⟨found, hfound, hmem⟩ := Connection.part_of_stores stores_state .uuid _
    rw [hfound, List.eq_nil_iff_forall_not_mem.mpr fun p hp => List.not_mem_nil ((hmem p).mp hp).1]
  have hlast : connection.part .uuid [last.id.text] after = .ok [last] :=
    Except.eq_ok_of_toOption (by decide +kernel)
  have hrest : connection.partsIn .uuid [[last.id.text]]
      (fun i => LockTurn.stateAt connection.putAll state turns (i + 1)) = .ok ([last] ++ []) :=
    Connection.partsIn_cons_of_ok hlast rfl
  have hboth : connection.partsIn .uuid _ (LockTurn.stateAt connection.putAll state turns) = _ :=
    Connection.partsIn_cons_of_ok hfirst hrest
  rw [(connection.readsEachQuery turns state).by_id, Connection.foundIn, parts_eq, hboth]
  rfl

theorem getAll_of_stores {s : Bool × Storage.Content} {ps : List Profile}
    (h : connection.Stores s true ps) (hps : ∀ p ∈ ps, ∀ q ∈ ps, p.id = q.id → p = q) :
    ∃ found, ((connection.getAll ids).run s).result = .ok found ∧
      ∀ p, p ∈ found ↔ p ∈ ps ∧ p.id.text ∈ ids.map PlayerId.text := by
  obtain ⟨found, hrun, -, hmem⟩ :=
    Connection.select_run_open h hps .uuid "read profiles from" (ids.map PlayerId.text)
  exact ⟨found, congrArg Run.result hrun, hmem⟩

end Torn

/-- A read of one id more than a query takes can miss a player who was stored, by the same call,
before one whom it finds. -/
theorem long_read_sees_two_moments :
    ((((Guarded.stored Torn.connection).getAll Torn.ids).amid Torn.connection.putAll
      Torn.turns).run Torn.state).result = .ok [Torn.last] ∧
    ¬ Sections.OneMoment Torn.connection.putAll Torn.turns Torn.state
      ((Guarded.stored Torn.connection).getAll Torn.ids) (Torn.connection.getAll Torn.ids) := by
  refine ⟨Torn.read_result, ?_⟩
  rintro ⟨before, rest, hsplit, hresult⟩
  rw [Torn.read_result] at hresult
  change [[Torn.first, Torn.last]] = before ++ rest at hsplit
  cases before with
  | nil =>
    obtain ⟨found, hfound, hmem⟩ := Torn.getAll_of_stores Torn.stores_state (by simp)
    have hlast : Torn.last ∈ found := by
      rw [← Except.ok.inj (hresult.trans hfound)]
      exact List.mem_singleton_self _
    exact List.not_mem_nil ((hmem _).mp hlast).1
  | cons b more =>
    obtain ⟨rfl, hmore⟩ := List.cons.inj hsplit
    obtain rfl : more = [] := (List.append_eq_nil_iff.mp hmore.symm).1
    obtain ⟨found, hfound, hmem⟩ := Torn.getAll_of_stores Torn.stores_after (by decide)
    have hfirst : Torn.first ∈ found := by
      refine (hmem _).mpr ⟨List.mem_cons_self, List.mem_map_of_mem ?_⟩
      exact List.mem_map.mpr ⟨0, List.mem_range.mpr (by decide), rfl⟩
    rw [← Except.ok.inj (hresult.trans hfound), List.mem_singleton] at hfirst
    exact absurd hfirst (by decide)

end PlayerLookup
