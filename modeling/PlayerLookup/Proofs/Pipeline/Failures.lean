import PlayerLookup.Proofs.Amount.Overflow
import PlayerLookup.Proofs.Parallel.FirstFailure
import PlayerLookup.Proofs.Pipeline.Built

/-! How the setting up of a pipeline, and a lookup through it, can fail. Nearly all that may be
caught is a failure of input and output or one of the library's own: what jobs fail with is wrapped,
arguments are checked, and a host that cannot be had is left out. What is neither is a delay too
large for a double, and what a platform has against a path. -/

set_option autoImplicit false

namespace PlayerLookup

variable {σ K α β : Type}

namespace Failure

/-- A failure that the command line reports: one of input and output, or the library's own. -/
def Reported (f : Failure) : Prop := f.isIn .inputOutput = true ∨ f.isIn .lookup = true

/-- If the failure may be caught at all, it is one that the command line reports. -/
def Handled (f : Failure) : Prop := f.isOrdinary = true → f.Reported

theorem reported_misuse (cause : Misuse) : (misuse cause).Reported := Or.inr rfl

theorem Reported.handled {f : Failure} (h : f.Reported) : f.Handled := fun _ => h

variable {P : Failure → Prop}

/-- If this is a failure, it is of such a kind. -/
def Only (P : Failure → Prop) (r : Except Failure α) : Prop := ∀ f, r = .error f → P f

theorem only_ok (a : α) : Only P (.ok a) := fun _ h => by cases h

theorem only_error {f : Failure} (h : P f) : Only P (.error f : Except Failure α) := by
  intro g hg
  cases hg
  exact h

theorem Only.bind {x : Except Failure α} {g : α → Except Failure β} (hx : Only P x)
    (hg : ∀ a, Only P (g a)) : Only P (x >>= g) := by
  cases x with
  | error e => exact only_error (hx e rfl)
  | ok a => exact hg a

theorem reported_unless {c : Prop} [Decidable c] (cause : Misuse) {r : Except Failure α}
    (h : Only Reported r) : Only Reported (if c then .error (.misuse cause) else r) := by
  split_ifs
  · exact only_error (reported_misuse cause)
  · exact h

end Failure

/-! ## Failures of jobs -/

namespace Workers

variable {w : Workers σ} {limit : Int}

theorem reported_wholeFailure (f : Failure) : (wholeFailure f).Reported := by
  by_cases h : f.isIn .inputOutput = true ∨ f.isIn .lookup = true
  · rw [wholeFailure_same h]
    exact h
  · rw [wholeFailure_wrapped h]
    exact Or.inr rfl

theorem handled_of_heard {outcomes : List (Except Failure α)} {done : List α}
    {first : Option Failure} {f : Failure} (h : heard done first outcomes = .error f) :
    f.Handled := by
  induction outcomes generalizing done first with
  | nil => cases h
  | cons outcome rest ih =>
    cases outcome with
    | ok a => exact ih h
    | error g =>
      rw [heard] at h
      by_cases hg : g.isOrdinary = true
      · rw [if_pos hg] at h
        exact ih h
      · rw [if_neg hg] at h
        cases h
        exact fun hf => absurd hf hg

/-- What the hearing of jobs comes to is a failure that is reported, or one that may not be caught.
-/
theorem handled_of_verdict {outcomes : List (Except Failure α)} {f : Failure}
    (h : verdict (heard [] none outcomes) = .error f) : f.Handled := by
  unfold verdict at h
  cases hheard : heard [] none outcomes with
  | error g =>
    rw [hheard] at h
    cases h
    exact handled_of_heard hheard
  | ok r =>
    obtain ⟨done, first⟩ := r
    rw [hheard] at h
    cases first with
    | none => cases h
    | some g =>
      cases h
      exact (reported_wholeFailure g).handled

theorem handled_of_jobs (hlimit : limit ≤ unlimited) (hrunning : w.stopped = false) {keys : List K}
    {f : Failure} (h : w.jobs limit keys = .error f) : f.Handled := by
  have hword : ¬ Word.largest < w.effectiveSize limit :=
    Int.not_lt.mpr ((Int.min_le_right _ _).trans hlimit)
  unfold jobs Batch.parts at h
  by_cases hsmall : w.effectiveSize limit < 1
  · rw [if_pos hsmall] at h
    cases h
    exact (Failure.reported_misuse _).handled
  · rw [if_neg hsmall, if_neg hword, hrunning] at h
    cases h

theorem failsOnly_findAll [DecidableEq K] (hlimit : limit ≤ unlimited)
    (hrunning : w.stopped = false) (hnever : w.NeverCancelled) (q : Queries σ K) (keys : List K) :
    (w.findAll limit q keys).FailsOnly Failure.Handled := by
  have hrun : ∀ parts, (runAll (w.taken parts) q.all).FailsOnly Failure.Handled := by
    intro parts s f hf
    rw [runAll_run] at hf
    cases hf
  have hhear : ∀ (parts keys : Nat) (outcomes : List (Nat × Except Failure (List Profile))),
      (w.hearing parts keys outcomes).FailsOnly Failure.Handled := by
    intro parts keys outcomes s f hf
    rw [(hearing_run hnever parts keys outcomes s).2] at hf
    exact handled_of_verdict hf
  rw [findAll_eq]
  refine Lookup.FailsOnly.bind ?_ fun results => Lookup.failsOnly_pure _
  exact (Lookup.failsOnly_ofExcept fun f hf => handled_of_jobs hlimit hrunning hf).bind fun parts =>
    (hrun parts).bind fun outcomes => hhear _ _ outcomes

end Workers

/-! ## Setting up a pipeline -/

theorem Settings.retryDelay_eq_error_iff (settings : Settings) (f : Failure) :
    settings.retryDelay = .error f ↔
      f = .delayOverflow ∧ Decimal.firstInfinite * 1000 ≤ settings.retryDelayMs.natAbs := by
  have hinf : (Decimal.Ratio.nearest (settings.retryDelayMs < 0)
      ⟨settings.retryDelayMs.natAbs, 1000⟩).isInf = true ↔ _ :=
    Decimal.isInf_nearest _ (Nat.succ_pos 999)
  unfold retryDelay
  dsimp only
  rw [← hinf]
  split_ifs with h
  · rw [Except.error.injEq]
    exact ⟨fun hf => ⟨hf.symm, h⟩, fun hf => hf.1.symm⟩
  · exact ⟨fun hf => (by cases hf), fun hf => absurd hf.2 h⟩

namespace RemoteSettings

open Failure (Only Reported only_ok reported_unless)

theorem reported_of_checkTimeout (given : Option Amount) : Only Reported (checkTimeout given) := by
  cases given with
  | none => exact only_ok _
  | some t => exact reported_unless (.timeout t) (only_ok _)

theorem reported_of_make (agent profilesUrl historyUrl : String) (retries : Int)
    (retryDelay : Amount) (timeout : Option Amount) :
    Only Reported (make agent profilesUrl historyUrl retries retryDelay timeout) := by
  unfold make
  refine reported_unless .noAgent (reported_unless (.templateWithoutId _) ?_)
  exact (reported_unless (.retries retries) (only_ok _)).bind fun _ =>
    (reported_unless (.retryDelay retryDelay) (only_ok _)).bind fun _ =>
      (reported_of_checkTimeout timeout).bind fun _ => only_ok _

end RemoteSettings

namespace Pipeline

open Failure (Only Reported only_ok reported_unless)

variable {settings : Settings} {f : Failure}

theorem reported_of_workersFor (schedule : Schedule) (settings : Settings) :
    Only Reported (workersFor schedule settings : Except Failure (Workers σ)) :=
  (reported_unless (.threads (.whole settings.threads)) (only_ok _)).bind fun _ =>
    (reported_unless (.jobSize settings.jobSize) (only_ok _)).bind fun _ => only_ok _

theorem reported_of_remoteSettings (h : remoteSettings settings = .error f) :
    f.Reported ∨
      f = .delayOverflow ∧ Decimal.firstInfinite * 1000 ≤ settings.retryDelayMs.natAbs := by
  unfold remoteSettings at h
  cases hdelay : settings.retryDelay with
  | error e =>
    rw [hdelay] at h
    cases h
    exact Or.inr ((settings.retryDelay_eq_error_iff f).mp hdelay)
  | ok delay =>
    rw [hdelay] at h
    exact Or.inl (RemoteSettings.reported_of_make RemoteSettings.defaultAgent settings.profilesUrl
      settings.historyUrl settings.retries delay settings.timeout f h)

end Pipeline

/-! ## The parts of a pipeline -/

namespace HostModules

theorem failsOnly_accept (path : String) (r : Option (Registry σ)) :
    (accept path r).FailsOnly (·.isOrdinary = false) := by
  cases r with
  | none => exact (Lookup.failsOnly_log _ _ _ _).bind fun _ => Lookup.failsOnly_pure _
  | some r => exact (Lookup.failsOnly_log _ _ _ _).bind fun _ => Lookup.failsOnly_pure _

theorem failsOnly_registryOf (path : String) (part : HostPart σ) :
    (registryOf path part).FailsOnly (·.isOrdinary = false) := by
  cases part with
  | registry r => exact failsOnly_accept path (some r)
  | other => exact failsOnly_accept path none
  | maker call =>
    cases call with
    | ok r => exact failsOnly_accept path r
    | error f =>
      unfold registryOf
      dsimp only
      split_ifs with hf
      · exact (Lookup.failsOnly_log _ _ _ _).bind fun _ => Lookup.failsOnly_pure _
      · exact Lookup.failsOnly_fail (Bool.eq_false_iff.mpr hf)

/-- A registry that cannot be had is no failure; only the end of the program is passed on. -/
theorem failsOnly_detect (modules : HostModules σ) (path : Option String) :
    (modules.detect path).FailsOnly (·.isOrdinary = false) := by
  cases path with
  | none => exact Lookup.failsOnly_pure _
  | some path =>
    unfold detect
    dsimp only
    split_ifs with hempty
    · exact Lookup.failsOnly_pure _
    · cases modules.part path with
      | ok part => exact failsOnly_registryOf path part
      | error f =>
        dsimp only
        split_ifs with hmissing hf
        · exact (Lookup.failsOnly_log _ _ _ _).bind fun _ => Lookup.failsOnly_pure _
        · exact (Lookup.failsOnly_log _ _ _ _).bind fun _ => Lookup.failsOnly_pure _
        · exact Lookup.failsOnly_fail (Bool.eq_false_iff.mpr hf)

end HostModules

namespace Cache

variable {refused : String → Option Failure} {files : Storage.Files} {path title : String}
  {f : Failure}

theorem openFile_error (h : openFile refused files path title = .error f) :
    f.Reported ∨ refused path = some f := by
  unfold openFile at h
  split_ifs at h with htitle
  · cases h
    exact Or.inl (Or.inr rfl)
  · cases hpath : refused path with
    | some g =>
      rw [hpath] at h
      cases h
      exact Or.inr rfl
    | none =>
      rw [hpath] at h
      dsimp only at h
      split at h
      · cases h
        exact Or.inl (Or.inr rfl)
      · split at h
        · cases h
          exact Or.inl (Or.inr rfl)
        · cases h

theorem openFile_refused (htitle : Text.isIdentifier title = true) (h : refused path = some f) :
    openFile refused files path title = .error f := by
  unfold openFile
  rw [htitle, if_neg (by decide), h]

end Cache

namespace Resources

variable {r : Resources σ}

theorem openCache_error_iff {path title : String} {s : σ} {f : Failure} :
    ((r.openCache path title).run s).result = .error f ↔
      Cache.openFile r.platform.path (r.files.get s) path title = .error f := by
  have hopened : ∀ (opened : Storage.Location × Storage.Database) t, ((do
      let c := r.connection path title opened.1
      c.content.write (.database opened.2)
      r.opened.write true
      Lookup.emit (.log (Cache.openedRecord path))
      return c : Lookup σ (Connection σ)).run t).result ≠ .error f := by
    intro opened t hf
    cases hf
  unfold openCache
  rw [Lookup.result_bind_eq_error]
  constructor
  · rintro (hread | ⟨events, t, files, hread, hrest⟩)
    · cases hread
    · cases hread
      rcases Lookup.result_bind_eq_error.mp hrest with hfile | ⟨events, u, opened, -, hrest⟩
      · exact hfile
      · exact absurd hrest (hopened opened u)
  · exact fun h => Or.inr ⟨_, _, _, rfl, Lookup.result_bind_eq_error.mpr (Or.inl h)⟩

theorem cacheFor_error_iff {path : Option String} {s : σ} {f : Failure} :
    ((r.cacheFor path).run s).result = .error f ↔ ∃ text, path = some text ∧ text ≠ "" ∧
      Cache.openFile r.platform.path (r.files.get s) text defaultTitle = .error f := by
  cases path with
  | none => exact iff_of_false (fun h => by cases h) fun ⟨_, h, _⟩ => by cases h
  | some text =>
    unfold cacheFor
    dsimp only
    split_ifs with hempty
    · refine iff_of_false (fun h => by cases h) ?_
      rintro ⟨_, h, hne, -⟩
      cases h
      exact hne hempty
    · rw [Lookup.result_bind_eq_error, openCache_error_iff]
      constructor
      · rintro (h | ⟨_, _, _, -, h⟩)
        · exact ⟨text, rfl, hempty, h⟩
        · cases h
      · rintro ⟨_, h, -, hfile⟩
        cases h
        exact Or.inl hfile

end Resources

namespace Cache

theorem close_ok {r : Resources σ} {c : Cache σ} (h : r.Supplies none c) (s : σ) :
    (c.close.run s).result = .ok () := by
  cases h with
  | memory => rfl
  | stored c => rfl

end Cache

namespace Pipeline

open Failure (Reported)

variable {r : Resources σ} {settings : Settings} {s : σ} {f : Failure}

theorem failsOnly_assemble (r : Resources σ) (settings : Settings) (remote : Remote σ)
    (host : Option (Registry σ)) (cache : Cache σ) :
    (assemble r settings remote host cache).FailsOnly Reported := by
  have hrecord : ∀ record, (Lookup.logIfAny record : Lookup σ Unit).FailsOnly Reported := by
    intro record s f hf
    cases record <;> cases hf
  exact (hrecord _).bind fun _ =>
    (Lookup.failsOnly_ofExcept (reported_of_workersFor r.schedule settings)).bind fun _ =>
      (Lookup.failsOnly_log _ _ _ _).bind fun _ => Lookup.failsOnly_pure _

/-- What leaves the setting up of a pipeline past what the command line reports: the remote source
has a delay that is too large, or the path of the cache that is opened after it is refused. -/
inductive Escapes (r : Resources σ) (settings : Settings) (s : σ) : Failure → Prop where
  | delay (hdelay : Decimal.firstInfinite * 1000 ≤ settings.retryDelayMs.natAbs) :
    Escapes r settings s .delayOverflow
  | path {remote : RemoteSettings} {host : Option (Registry σ)} {path : String}
    (hremote : remoteSettings settings = .ok remote)
    (hhost : ((r.modules.detect settings.registry).run s).result = .ok host)
    (hpath : settings.cachePath = some path) (hne : path ≠ "") {f : Failure}
    (hrefused : r.platform.path path = some f) (hsilent : ¬ f.Reported) :
    Escapes r settings s f

theorem Escapes.not_reported (h : Escapes r settings s f) : ¬ f.Reported := by
  cases h with
  | delay => unfold Reported; decide
  | path _ _ _ _ _ hsilent => exact hsilent

theorem unprepared_error (h : ((unprepared r settings none).run s).result = .error f) :
    f.Handled ∨ Escapes r settings s f := by
  rcases Lookup.result_bind_eq_error.mp h with hremote | ⟨_, t, remote, hset, hrest⟩
  · rcases reported_of_remoteSettings hremote with hreported | ⟨rfl, hdelay⟩
    · exact Or.inl hreported.handled
    · exact Or.inr (.delay hdelay)
  obtain ⟨-, rfl, hremote⟩ := Run.mk.inj hset
  rcases Lookup.result_bind_eq_error.mp hrest with hhost | ⟨_, u, host, hhost, hrest⟩
  · exact Or.inl fun hf => absurd hf (Bool.eq_false_iff.mp
      (HostModules.failsOnly_detect r.modules settings.registry s f hhost))
  rcases Lookup.result_bind_eq_error.mp hrest with hcache | ⟨_, v, cache, hcache, hrest⟩
  · obtain ⟨path, hpath, hne, hfile⟩ := Resources.cacheFor_error_iff.mp hcache
    by_cases hreported : f.Reported
    · exact Or.inl hreported.handled
    · have hrefused := (Cache.openFile_error hfile).resolve_left hreported
      exact Or.inr (.path hremote (by rw [hhost]) hpath hne hrefused hreported)
  · have hsupplies : r.Supplies none cache := supplies_of_cacheFor (s := u) (by rw [hcache])
    refine Or.inl (Failure.Reported.handled (Lookup.FailsOnly.rescue (failsOnly_assemble r settings
      _ host cache) (fun g hg => ?_) v f hrest))
    refine Lookup.FailsOnly.bind (fun w e he => ?_) fun _ => Lookup.failsOnly_fail hg
    rw [Cache.close_ok hsupplies w] at he
    cases he

theorem Escapes.unprepared (h : Escapes r settings s f) :
    ((unprepared r settings none).run s).result = .error f := by
  refine Lookup.result_bind_eq_error.mpr ?_
  cases h with
  | delay hdelay =>
    have hfails : remoteSettings settings = .error .delayOverflow := by
      rw [remoteSettings, (settings.retryDelay_eq_error_iff _).mpr ⟨rfl, hdelay⟩]
      rfl
    exact Or.inl hfails
  | path hremote hhost hpath hne hrefused =>
    refine Or.inr ⟨[], s, _, congrArg (Run.mk [] s) hremote, ?_⟩
    rcases hrun : (r.modules.detect settings.registry).run s with ⟨events, t, result⟩
    rw [hrun] at hhost
    obtain rfl : result = .ok _ := hhost
    refine Lookup.result_bind_eq_error.mpr (Or.inr ⟨events, t, _, hrun, ?_⟩)
    exact Lookup.result_bind_eq_error.mpr (Or.inl (Resources.cacheFor_error_iff.mpr
      ⟨_, hpath, hne, Cache.openFile_refused (by decide) hrefused⟩))

theorem BuiltFrom.failsOnly_service {p : Pipeline σ} (h : p.BuiltFrom r settings none) :
    (∀ names, (p.service.byName.all names).FailsOnly Failure.Handled) ∧
      ∀ ids, (p.service.byId.all ids).FailsOnly Failure.Handled := by
  have hlimit : smallestLimit (members p.host p.cache r.pinned p.remote) ≤ unlimited := by
    rw [limit_members]
    decide
  have hrunning : p.workers.stopped = false := by rw [h.workers_eq]
  have hnever : p.workers.NeverCancelled := by
    rw [h.workers_eq]
    exact fun _ hask => by cases hask
  rw [h.service_eq]
  exact ⟨fun names => Workers.failsOnly_findAll hlimit hrunning hnever _ names,
    fun ids => Workers.failsOnly_findAll hlimit hrunning hnever _ ids⟩

end Pipeline

end PlayerLookup
