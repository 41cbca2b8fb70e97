import PlayerLookup.Pipeline
import PlayerLookup.Proofs.Cache.Connection

/-! A database that a cache has written can be opened again, and is then what was written. Writing a
file does not change which directories and files there are on the way to it. -/

set_option autoImplicit false

namespace PlayerLookup

open Storage (Content Files Location Place)
open Storage.Table (ofProfiles)

variable {σ : Type}

namespace Storage.Files

theorem any_setEntry (place : Place) (content : Content) (P : Place → Bool)
    (entries : List (Place × Content)) :
    ((setEntry place content entries).any fun e => P e.1) =
      ((entries.any fun e => P e.1) || P place) := by
  induction entries with
  | nil => simp [setEntry]
  | cons e rest ih =>
    obtain ⟨p, old⟩ := e
    rw [setEntry]
    by_cases hp : p = place
    · subst hp
      rw [if_pos rfl, List.any_cons, List.any_cons]
      cases P p <;> simp
    · rw [if_neg hp, List.any_cons, List.any_cons, ih, Bool.or_assoc]

theorem hasDirectory_set (files : Files) (place : Place) (content : Content) (q : Place) :
    (files.set place content).hasDirectory q =
      (files.hasDirectory q || (q.isPrefixOf place && decide (q.length < place.length))) := by
  have h := any_setEntry place content
    (fun p => q.isPrefixOf p && decide (q.length < p.length)) files.entries
  simp only [hasDirectory, set] at h ⊢
  rw [h, Bool.or_assoc]

theorem open?_set {files : Files} {path : String} {place : Place}
    (h : files.open? path = .ok (.file place)) (content : Content) :
    (files.set place content).open? path = .ok (.file place) := by
  unfold open? at h ⊢
  by_cases hprivate : isPrivatePath path = true
  · simp [hprivate] at h
  · rw [if_neg hprivate] at h ⊢
    cases hplace : place? path with
    | none => simp [hplace] at h
    | some q =>
      rw [hplace] at h
      dsimp only at h ⊢
      by_cases hbad : (files.hasDirectory q || !files.hasDirectory q.dropLast) = true
      · simp [hbad] at h
      · rw [if_neg hbad] at h
        have hq : q = place := by simpa using h
        subst hq
        have hgood := hbad
        simp only [Bool.or_eq_true, Bool.not_eq_true', not_or, Bool.not_eq_true,
          Bool.not_eq_false] at hgood
        rw [if_neg]
        simp [hasDirectory_set, hgood.1, hgood.2]

end Storage.Files

/-! ## Opening -/

namespace Storage.Database

theorem prepare_nil {title : String} {db : Storage.Database} (h : prepare [] title = .ok db) :
    isReserved title = false ∧ db = [ofProfiles title []] := by
  unfold prepare at h
  cases hreserved : isReserved title with
  | true => simp [hreserved] at h
  | false =>
    rw [hreserved] at h
    exact ⟨rfl, (Except.ok.inj h).symm⟩

theorem prepare_ofProfiles {title : String} (h : isReserved title = false) (ps : List Profile) :
    prepare [ofProfiles title ps] title = .ok [ofProfiles title ps] := by
  rw [prepare, h, find?_ofProfiles]
  change Except.ok (setTable _ _) = _
  rw [setTable_ofProfiles]

theorem isReserved_defaultTitle : isReserved defaultTitle = false := by
  have hlower : defaultTitle.map Char.toLower = defaultTitle := by
    apply String.ext
    rw [String.toList_map]
    decide
  rw [isReserved, hlower]
  decide

end Storage.Database

namespace Cache

/-- What opening a file takes. -/
structure Opens (refused : String → Option Failure) (files : Files) (path title : String)
    (place : Place) (db : Storage.Database) : Prop where
  title_ok : Text.isIdentifier title = true
  path_ok : refused path = none
  open_eq : files.open? path = .ok (.file place)
  prepare_eq : (files.content place).tables.bind (Storage.Database.prepare · title) = .ok db

theorem openFile_eq_ok_iff (refused : String → Option Failure) (files : Files)
    (path title : String) (place : Place) (db : Storage.Database) :
    openFile refused files path title = .ok (.file place, db) ↔
      Opens refused files path title place db := by
  constructor
  · intro h
    unfold openFile at h
    split at h
    · cases h
    · next htitle =>
      split at h
      · cases h
      · next hpath =>
        split at h
        · cases h
        · next location hopen =>
          dsimp only at h
          split at h
          · cases h
          · next db' hprepare =>
            obtain ⟨rfl, rfl⟩ : location = .file place ∧ db' = db := by simpa using h
            exact ⟨by simpa using htitle, hpath, hopen, hprepare⟩
  · rintro ⟨htitle, hpath, hopen, hprepare⟩
    unfold openFile
    rw [htitle, hpath, hopen]
    dsimp only [Bool.not_true, Bool.false_eq_true, if_false]
    simp only [hprepare]
    rfl

/-- A file in which nothing but the table of the cache was written opens as it was written. -/
theorem Opens.again {refused : String → Option Failure} {files files' : Files}
    {path title : String} {place : Place} {db : Storage.Database}
    (h : Opens refused files path title place db)
    (hreserved : Storage.Database.isReserved title = false)
    (hopen : files'.open? path = .ok (.file place)) {ps : List Profile}
    (hcontent : files'.content place = .database [ofProfiles title ps]) :
    Opens refused files' path title place [ofProfiles title ps] where
  title_ok := h.title_ok
  path_ok := h.path_ok
  open_eq := hopen
  prepare_eq := by
    rw [hcontent]
    exact Storage.Database.prepare_ofProfiles hreserved ps

theorem opens_new {refused : String → Option Failure} {files : Files} {path : String}
    {place : Place} (hpath : refused path = none) (hopen : files.open? path = .ok (.file place))
    (hnew : files.content place = .database []) :
    Opens refused files path defaultTitle place [ofProfiles defaultTitle []] where
  title_ok := by decide
  path_ok := hpath
  open_eq := hopen
  prepare_eq := by
    rw [hnew]
    change Storage.Database.prepare [] defaultTitle = _
    rw [Storage.Database.prepare, Storage.Database.isReserved_defaultTitle]
    rfl

end Cache

end PlayerLookup
