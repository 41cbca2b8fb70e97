import PlayerLookup.Proofs.Cache.Agreement
import PlayerLookup.Proofs.Cache.Reopening
import PlayerLookup.Session

/-! Whole runs over a file and over a memory: from a new file on, through calls of every kind and
any closing and reopening, both find the same. -/

set_option autoImplicit false

namespace PlayerLookup

open Storage (Content Files Place)
open Storage.Table (ofProfiles)

variable {σ τ : Type}

/-! ## Opening the file -/

namespace Resources

def openStored (r : Resources σ) (path title : String) : Lookup σ (Cache σ) := do
  let c ← r.openCache path title
  return Cache.stored c

theorem openStored_yields (r : Resources σ) {path title : String} {place : Place}
    {db : Storage.Database} {s : σ}
    (h : Cache.Opens r.platform.path (r.files.get s) path title place db) :
    (r.openStored path title).Yields s
      (r.opened.set ((r.contentCell (.file place)).set s (.database db)) true)
      (Cache.stored (r.connection path title (.file place))) := by
  have hopen := (Cache.openFile_eq_ok_iff ..).mpr h
  have hcache : (r.openCache path title).Yields s
      (r.opened.set ((r.contentCell (.file place)).set s (.database db)) true)
      (r.connection path title (.file place)) := by
    refine ⟨[.log (Cache.openedRecord path)], ?_⟩
    have hfile : (Lookup.ofExcept (Cache.openFile r.platform.path (r.files.get s) path title) :
        Lookup σ _).run s = ⟨[], s, .ok (.file place, db)⟩ := by
      rw [hopen]
      rfl
    rw [openCache, Lookup.run_bind_quiet (r.files.run_read s), Lookup.run_bind_quiet hfile]
    rfl
  exact hcache.bind (Lookup.yields_pure _ _)

end Resources

namespace Cache

/-- The file can be opened, and its connection and a memory behind a door are at the same point. -/
structure InStep (r : Resources σ) (path title : String) (place : Place) (door : Cell τ Bool)
    (cell : Cell τ Memory) (s : σ) (u : τ) : Prop where
  matched : Matched (r.connection path title (.file place)) door cell s u
  open_eq : (r.files.get s).open? path = .ok (.file place)

variable {r : Resources σ} {path title : String} {place : Place} {door : Cell τ Bool}
  {cell : Cell τ Memory} {s : σ} {u : τ}

theorem InStep.written (h : InStep r path title place door cell s u) {t : σ} {u' : τ}
    (htouched : t = s ∨ ∃ x, t = (r.connection path title (.file place)).content.set s x)
    (hmatched : Matched (r.connection path title (.file place)) door cell t u') :
    InStep r path title place door cell t u' := by
  refine ⟨hmatched, ?_⟩
  rcases htouched with rfl | ⟨x, rfl⟩
  · exact h.open_eq
  · change (r.files.get (r.files.set s ((r.files.get s).set place x))).open? path = _
    rw [r.files.get_set]
    exact Files.open?_set h.open_eq x

theorem InStep.turned (hopened : r.opened.Apart r.files) (hdoor : door.Apart cell)
    (h : InStep r path title place door cell s u) (b : Bool) :
    InStep r path title place door cell (r.opened.set s b) (door.set u b) := by
  obtain ⟨⟨ps, history, hs, hm, hps⟩, hopen⟩ := h
  have hfiles : r.files.get (r.opened.set s b) = r.files.get s := hopened s b
  refine ⟨⟨ps, history, ⟨?_, ?_⟩, ?_, hps⟩, ?_⟩
  · rw [door.get_set]
    exact r.opened.get_set s b
  · have hcontent := hs.content_eq
    change (r.files.get (r.opened.set s b)).content place = _
    rw [hfiles]
    exact hcontent
  · rw [hdoor u b]
    exact hm
  · rw [hfiles]
    exact hopen

/-- A file that was closed opens with the profiles that it held, and the memory's door is opened. -/
theorem InStep.reopened (hfiles : r.files.Apart r.opened) (hopened : r.opened.Apart r.files)
    (hdoor : door.Apart cell) {files : Files} {db : Storage.Database}
    (hopens : Opens r.platform.path files path title place db)
    (hreserved : Storage.Database.isReserved title = false)
    (h : InStep r path title place door cell s u) :
    ∃ t, (r.openStored path title).Yields s t
        (stored (r.connection path title (.file place))) ∧
      InStep r path title place door cell t (door.set u true) := by
  obtain ⟨ps, history, hs, hm, hps⟩ := h.matched
  have hagain : Opens r.platform.path (r.files.get s) path title place [ofProfiles title ps] :=
    hopens.again hreserved h.open_eq hs.content_eq
  have hsame : Matched (r.connection path title (.file place)) door cell
      ((r.contentCell (.file place)).set s (.database [ofProfiles title ps])) u := by
    refine ⟨ps, history, ⟨?_, ?_⟩, hm, hps⟩
    · have hapart := Cell.Apart.within hfiles (Files.entryCell place)
      rw [← hs.opened_eq]
      exact hapart s _
    · exact (r.contentCell (.file place)).get_set s _
  exact ⟨_, r.openStored_yields hagain,
    (h.written (Or.inr ⟨_, rfl⟩) hsame).turned hopened hdoor true⟩

/-- Steps taken from the same point find the same, one by one. -/
theorem replay_in_step (hfiles : r.files.Apart r.opened) (hopened : r.opened.Apart r.files)
    (hdoor : door.Apart cell) (hcell : cell.Apart door) {files : Files} {db : Storage.Database}
    (hopens : Opens r.platform.path files path title place db)
    (hreserved : Storage.Database.isReserved title = false) (steps : List CacheStep) :
    ∀ s u, InStep r path title place door cell s u →
    ∃ t answers u' expected,
      (replay (r.openStored path title) (stored (r.connection path title (.file place)))
        steps).Yields s t answers ∧
      (replay (do door.write true; return behind door (memory cell))
        (behind door (memory cell)) steps).Yields u u' expected ∧
      List.Forall₂ List.Perm answers expected := by
  induction steps with
  | nil =>
    intro s u _
    exact ⟨s, [], u, [], Lookup.yields_pure [] s, Lookup.yields_pure [] u, List.Forall₂.nil⟩
  | cons step rest ih =>
    intro s u h
    have hapart : (r.contentCell (.file place)).Apart r.opened :=
      Cell.Apart.within hfiles (Files.entryCell place)
    cases step with
    | call k =>
      obtain ⟨t, u', found, expected, hfound, hexpected, hperm, hmatched, htouched⟩ :=
        answer_matched hapart hcell h.matched k
      obtain ⟨t', more, u'', others, hmore, hothers, hperms⟩ :=
        ih t u' (h.written htouched hmatched)
      exact ⟨t', found :: more, u'', expected :: others,
        hfound.bind (hmore.bind (Lookup.yields_pure _ t')),
        hexpected.bind (hothers.bind (Lookup.yields_pure _ u'')), List.Forall₂.cons hperm hperms⟩
    | close =>
      obtain ⟨t, more, u', others, hmore, hothers, hperms⟩ :=
        ih _ _ (h.turned hopened hdoor false)
      have hclose : (r.opened.write false).Yields s (r.opened.set s false) () := ⟨[], rfl⟩
      have hshut : (door.write false).Yields u (door.set u false) () := ⟨[], rfl⟩
      exact ⟨t, [] :: more, u', [] :: others,
        hclose.bind (hmore.bind (Lookup.yields_pure _ t)),
        hshut.bind (hothers.bind (Lookup.yields_pure _ u')),
        List.Forall₂.cons (List.Perm.refl []) hperms⟩
    | reopen =>
      obtain ⟨t, hreopen, hopen⟩ := (h.turned hopened hdoor false).reopened hfiles hopened hdoor
        hopens hreserved
      obtain ⟨t', more, u', others, hmore, hothers, hperms⟩ := ih _ _ hopen
      have hclose : (r.opened.write false).Yields s (r.opened.set s false) () := ⟨[], rfl⟩
      have hshut : (door.write false).Yields u (door.set u false) () := ⟨[], rfl⟩
      have hdoorOpen : (do door.write true; return behind door (memory cell) :
          Lookup τ (Cache τ)).Yields (door.set u false) (door.set (door.set u false) true)
          (behind door (memory cell)) := ⟨[], rfl⟩
      exact ⟨t', [] :: more, u', [] :: others,
        hclose.bind (hreopen.bind (hmore.bind (Lookup.yields_pure _ t'))),
        hshut.bind (hdoorOpen.bind (hothers.bind (Lookup.yields_pure _ u'))),
        List.Forall₂.cons (List.Perm.refl []) hperms⟩

/-! ## Runs from a new file -/

/-- A memory that is open or shut as the file is. -/
def shutMemory : Cache (Bool × Memory) := behind Cell.first (memory Cell.second)

/-- Opens the memory, which still holds what it held. -/
def openMemory : Lookup (Bool × Memory) (Cache (Bool × Memory)) := do
  Cell.first.write true
  return shutMemory

/-- From a new file on, every call finds the same profiles, in some order, as over a memory that
gets the same calls; while the file is closed, a call changes nothing and finds nothing. -/
theorem stored_agrees_with_memory (r : Resources σ) (hfiles : r.files.Apart r.opened)
    (hopened : r.opened.Apart r.files) {path title : String} {place : Place}
    {db : Storage.Database} {s : σ}
    (hopen : openFile r.platform.path (r.files.get s) path title = .ok (.file place, db))
    (hnew : (r.files.get s).content place = .database []) (steps : List CacheStep) :
    (∃ t answers u expected,
      (do
        let c ← r.openStored path title
        replay (r.openStored path title) c steps).Yields s t answers ∧
      (replay openMemory shutMemory steps).Yields (true, .empty) u expected ∧
      List.Forall₂ List.Perm answers expected) ∧
    ∀ t k, r.opened.get t = false →
      ((stored (r.connection path title (.file place))).answer k).Yields t t [] := by
  refine ⟨?_, fun t k h => answer_stored_closed _ h k⟩
  have hopens : Opens r.platform.path (r.files.get s) path title place db :=
    (openFile_eq_ok_iff ..).mp hopen
  obtain ⟨hreserved, rfl⟩ : Storage.Database.isReserved title = false ∧
      db = [ofProfiles title []] := by
    have hprepare := hopens.prepare_eq
    rw [hnew] at hprepare
    exact Storage.Database.prepare_nil hprepare
  have hstart : InStep r path title place Cell.first Cell.second
      (r.opened.set ((r.contentCell (.file place)).set s (.database [ofProfiles title []])) true)
      (true, Memory.empty) := by
    refine ⟨⟨[], [], ⟨r.opened.get_set _ true, ?_⟩, Memory.reflects_empty, ?_⟩, ?_⟩
    · change (r.files.get (r.opened.set _ true)).content place = _
      rw [hopened]
      exact (r.contentCell (.file place)).get_set s _
    · simp [not_stands_nil]
    · rw [hopened]
      change (r.files.get (r.files.set s ((r.files.get s).set place _))).open? path = _
      rw [r.files.get_set]
      exact Files.open?_set hopens.open_eq _
  have hshut : (Cell.first : Cell (Bool × Memory) Bool).Apart Cell.second := fun _ _ => rfl
  have hheld : (Cell.second : Cell (Bool × Memory) Memory).Apart Cell.first := fun _ _ => rfl
  obtain ⟨t, answers, u, expected, hanswers, hexpected, hperm⟩ :=
    replay_in_step hfiles hopened hshut hheld hopens hreserved steps _ _ hstart
  exact ⟨t, answers, u, expected, (r.openStored_yields hopens).bind hanswers, hexpected, hperm⟩

/-- A player takes a new name that another one holds, and the file is closed and opened again. -/
def takeOverSteps : List CacheStep :=
  takeOver.map (fun w => .call (.store w)) ++
    [.close, .call (.getAll [⟨1⟩, ⟨2⟩]), .reopen, .call (.getByName "Birch")]

/-- A session that reaches no service and has no host. -/
def offline : Resources Session := Session.resources (fun _ => Lookup.fail .zeroInPath) []

theorem stored_agrees_on_takeOver :
    openFile offline.platform.path (offline.files.get Session.new) "cache.db" defaultTitle =
        .ok (.file ["cache.db"], [ofProfiles defaultTitle []]) ∧
      ∃ t answers u expected,
        (do
          let c ← offline.openStored "cache.db" defaultTitle
          replay (offline.openStored "cache.db" defaultTitle) c takeOverSteps).Yields
            Session.new t answers ∧
        (replay openMemory shutMemory takeOverSteps).Yields (true, .empty) u expected ∧
        List.Forall₂ List.Perm answers expected := by
  have hopens : Opens offline.platform.path (offline.files.get Session.new) "cache.db"
      defaultTitle ["cache.db"] [ofProfiles defaultTitle []] := opens_new rfl rfl rfl
  have hopen := (openFile_eq_ok_iff ..).mpr hopens
  exact ⟨hopen, (stored_agrees_with_memory offline (fun _ _ => rfl) (fun _ _ => rfl) hopen rfl
    takeOverSteps).1⟩

end Cache

end PlayerLookup
