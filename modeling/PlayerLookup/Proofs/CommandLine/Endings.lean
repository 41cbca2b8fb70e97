import PlayerLookup.CommandLine.Run
import PlayerLookup.Proofs.Cache.Replay
import PlayerLookup.Proofs.Pipeline.Failures

/-! How runs of the command line end. Whatever the arguments, the environment, the files, the host
and the remote service are, a run ends by itself or with a status that says why, but for what
nothing catches: two failures of setting up a pipeline, and those of the environment file and of
printing that lie outside of a run. -/

set_option autoImplicit false

namespace PlayerLookup.CommandLine

variable {σ : Type} {r : Resources σ} {settings : Settings} {s : σ} {f : Failure} {keys : Keys}

/-! ## The lookup of a run -/

theorem lookUp_error (hprepare : ∀ p, (r.prepare p).FailsOnly fun _ => False)
    (h : ((lookUp r settings keys).run s).result = .error f) :
    f.Handled ∨ Pipeline.Escapes r settings s f := by
  rcases Lookup.result_bind_eq_error.mp h with hset | ⟨_, t, p, hset, hrest⟩
  · rcases Lookup.result_bind_eq_error.mp hset with hset | ⟨_, t, p, -, hrest⟩
    · exact Pipeline.unprepared_error hset
    · rcases Lookup.result_bind_eq_error.mp hrest with hfails | ⟨_, u, _, -, hpure⟩
      · exact (hprepare p t f hfails).elim
      · cases hpure
  have hbuilt := Pipeline.builtFrom_of_ofSettings (s := s) (by rw [hset])
  rcases Lookup.result_bind_eq_error.mp hrest with hattempt | ⟨_, u, found, hattempt, hrest⟩
  · cases hattempt
  rcases Lookup.result_bind_eq_error.mp hrest with hclose | ⟨_, v, _, -, hfound⟩
  · rw [Pipeline.close, Cache.close_ok hbuilt.cache_from u] at hclose
    cases hclose
  · -- The failure is the one that was kept while the pipeline was closed.
    have hfound : found = .error f := hfound
    rw [Lookup.run_attempt, hfound] at hattempt
    have hresult := Except.ok.inj (Run.mk.inj hattempt).2.2
    cases keys with
    | names names => exact Or.inl (hbuilt.failsOnly_service.1 names t f hresult)
    | ids ids => exact Or.inl (hbuilt.failsOnly_service.2 ids t f hresult)

theorem lookUp_of_escapes (h : Pipeline.Escapes r settings s f) :
    ((lookUp r settings keys).run s).result = .error f :=
  Lookup.result_bind_eq_error.mpr (Or.inl (Lookup.result_bind_eq_error.mpr (Or.inl h.unprepared)))

/-- Of failures that may be caught, a lookup has those that are not reported from its pipeline. -/
theorem lookUp_escapes_iff (hprepare : ∀ p, (r.prepare p).FailsOnly fun _ => False)
    (hf : f.isOrdinary = true) :
    ((lookUp r settings keys).run s).result = .error f ∧ ¬ f.Reported ↔
      Pipeline.Escapes r settings s f := by
  constructor
  · rintro ⟨hresult, hsilent⟩
    exact (lookUp_error hprepare hresult).resolve_left fun hhandled => hsilent (hhandled hf)
  · exact fun h => ⟨lookUp_of_escapes h, h.not_reported⟩

/-! ## How a lookup is finished -/

theorem failureRecord?_eq_none_iff : failureRecord? f = none ↔ ¬ f.Reported := by
  unfold failureRecord? Failure.Reported
  by_cases hinput : f.isIn .inputOutput = true
  · simp [hinput]
  · by_cases hlookup : f.isIn .lookup = true <;> simp [hinput, hlookup]

theorem put_snd (refused : String → Option Failure) (text : String) :
    (put refused text).2 = if text = "" then none else refused text := by
  unfold put
  split_ifs with h
  · rfl
  · cases refused text <;> rfl

/-- A lookup fails, or what it finds cannot be printed. -/
inductive Failed (around : Surroundings) (invocation : Invocation) :
    Except Failure (List Profile) → Failure → Prop where
  | lookup (f : Failure) : Failed around invocation (.error f) f
  | output {ps : List Profile} {f : Failure}
    (hput : (put around.output (printed ps invocation.json)).2 = some f) :
    Failed around invocation (.ok ps) f

section

variable (around : Surroundings) (setup : Log.Setup) (invocation : Invocation)
  (caseSensitive : Bool) (log : String) {found : Except Failure (List Profile)}

theorem finishFailed_of_reported (h : f.Reported) :
    (finishFailed around setup log f).status = 1 ∧
      (finishFailed around setup log f).uncaught = none := by
  unfold finishFailed
  cases hrecord : failureRecord? f with
  | none => exact absurd h (failureRecord?_eq_none_iff.mp hrecord)
  | some record => exact ⟨rfl, rfl⟩

theorem finishFailed_of_not_reported (h : ¬ f.Reported) :
    (finishFailed around setup log f).status = 0 ∧
      (finishFailed around setup log f).uncaught = some f := by
  unfold finishFailed
  rw [failureRecord?_eq_none_iff.mpr h]
  exact ⟨rfl, rfl⟩

variable {around invocation}

theorem Failed.unique {g : Failure} (hf : Failed around invocation found f)
    (hg : Failed around invocation found g) : f = g := by
  cases hf with
  | lookup =>
    cases hg
    rfl
  | output hput =>
    cases hg with
    | output hput' =>
      rw [hput] at hput'
      exact Option.some.inj hput'

theorem finishLookup_of_failed (h : Failed around invocation found f) :
    finishLookup around setup invocation caseSensitive log found =
      finishFailed around setup log f := by
  cases h with
  | lookup => rfl
  | @output ps _ hput =>
    unfold finishLookup
    dsimp only
    rcases hrun : put around.output (printed ps invocation.json) with ⟨seen, refused⟩
    rw [hrun] at hput
    obtain rfl : refused = some f := hput
    rfl

theorem finishLookup_of_printed {ps : List Profile}
    (h : (put around.output (printed ps invocation.json)).2 = none) :
    (finishLookup around setup invocation caseSensitive log (.ok ps)).status = 0 ∧
      (finishLookup around setup invocation caseSensitive log (.ok ps)).uncaught =
        (put around.errors (unresolvedLine (unresolved invocation.keys ps caseSensitive))).2 := by
  unfold finishLookup
  dsimp only
  rcases hrun : put around.output (printed ps invocation.json) with ⟨seen, refused⟩
  rw [hrun] at h
  obtain rfl : refused = none := h
  exact ⟨ite_self 0, rfl⟩

variable (around invocation found) in
theorem finishLookup_status :
    (finishLookup around setup invocation caseSensitive log found).status ≤ 1 ∧
      ((finishLookup around setup invocation caseSensitive log found).status = 1 ↔
        ∃ f, Failed around invocation found f ∧ f.Reported) := by
  by_cases hfailed : ∃ f, Failed around invocation found f
  · obtain ⟨f, hf⟩ := hfailed
    have hiff : (∃ g, Failed around invocation found g ∧ g.Reported) ↔ f.Reported :=
      ⟨fun ⟨g, hg, hreported⟩ => hf.unique hg ▸ hreported, fun h => ⟨f, hf, h⟩⟩
    rw [finishLookup_of_failed setup caseSensitive log hf, hiff]
    by_cases hreported : f.Reported
    · have hstatus := (finishFailed_of_reported around setup log hreported).1
      exact ⟨hstatus.le, iff_of_true hstatus hreported⟩
    · have hstatus := (finishFailed_of_not_reported around setup log hreported).1
      exact ⟨by omega, iff_of_false (by omega) hreported⟩
  · cases found with
    | error f => exact absurd ⟨f, .lookup f⟩ hfailed
    | ok ps =>
      have hprinted : (put around.output (printed ps invocation.json)).2 = none := by
        by_contra hput
        obtain ⟨f, hf⟩ := Option.ne_none_iff_exists'.mp hput
        exact hfailed ⟨f, .output hf⟩
      have hstatus := (finishLookup_of_printed setup caseSensitive log hprinted).1
      exact ⟨by omega, iff_of_false (by omega) fun ⟨f, hf, _⟩ => hfailed ⟨f, hf⟩⟩

/-- What is not reported is let out, and so is a failure to list the keys that are left out. -/
theorem finishLookup_uncaught_iff :
    (finishLookup around setup invocation caseSensitive log found).uncaught = some f ↔
      (Failed around invocation found f ∧ ¬ f.Reported) ∨
      ∃ ps, found = .ok ps ∧ (put around.output (printed ps invocation.json)).2 = none ∧
        (put around.errors (unresolvedLine (unresolved invocation.keys ps caseSensitive))).2 =
          some f := by
  by_cases hfailed : ∃ g, Failed around invocation found g
  · obtain ⟨g, hg⟩ := hfailed
    rw [finishLookup_of_failed setup caseSensitive log hg]
    have hlisted : ¬ ∃ ps, found = .ok ps ∧
        (put around.output (printed ps invocation.json)).2 = none ∧
        (put around.errors (unresolvedLine (unresolved invocation.keys ps caseSensitive))).2 =
          some f := by
      rintro ⟨ps, rfl, hprinted, -⟩
      cases hg with
      | output hput =>
        rw [hprinted] at hput
        cases hput
    rw [or_iff_left hlisted]
    by_cases hreported : g.Reported
    · rw [(finishFailed_of_reported around setup log hreported).2]
      refine iff_of_false (fun h => by cases h) fun ⟨hf, hsilent⟩ => ?_
      exact hsilent (hg.unique hf ▸ hreported)
    · rw [(finishFailed_of_not_reported around setup log hreported).2, Option.some.injEq]
      exact ⟨fun h => h ▸ ⟨hg, hreported⟩, fun h => hg.unique h.1⟩
  · rw [or_iff_right fun h => hfailed ⟨f, h.1⟩]
    cases found with
    | error g => exact absurd ⟨g, .lookup g⟩ hfailed
    | ok ps =>
      have hprinted : (put around.output (printed ps invocation.json)).2 = none := by
        by_contra hput
        obtain ⟨g, hg⟩ := Option.ne_none_iff_exists'.mp hput
        exact hfailed ⟨g, .output hg⟩
      rw [(finishLookup_of_printed setup caseSensitive log hprinted).2]
      refine ⟨fun h => ⟨ps, rfl, hprinted, h⟩, ?_⟩
      rintro ⟨_, hps, -, h⟩
      cases hps
      exact h

end

/-! ## How a run ends without a lookup -/

theorem ending_status_iff {status : Nat} (hne : status ≠ 0) {output errors : String}
    {uncaught : Option Failure} :
    (ending status output errors uncaught).status = status ↔ uncaught = none := by
  cases uncaught with
  | none => exact iff_of_true rfl rfl
  | some f => exact iff_of_false (fun h => hne h.symm) nofun

theorem ending_status_le (status : Nat) (output errors : String) (uncaught : Option Failure) :
    (ending status output errors uncaught).status ≤ status := by
  cases uncaught with
  | none => exact Nat.le_refl status
  | some f => exact Nat.zero_le status

theorem let_out_iff {refused : Option Failure} :
    refused.filter (!isPassedOver ·) = some f ↔ refused = some f ∧ isPassedOver f = false := by
  rw [Option.filter_eq_some_iff, Bool.not_eq_true']

theorem passed_over_iff {refused : Option Failure} :
    refused.filter (!isPassedOver ·) = none ↔ ∀ f, refused = some f → isPassedOver f = true := by
  simp [Option.filter_eq_none_iff]

/-! ## Whole runs -/

/-- Arguments, environment file and settings are in order, so that keys are looked up. -/
def Begins (around : Surroundings) (args : List String) (invocation : Invocation)
    (settings : Settings) : Prop :=
  parse args = .ok invocation ∧ ∃ environment assignments loaded,
    (around.load around.environment).result = .ok environment ∧
      (around.assign environment).result = .ok assignments ∧
      Settings.load [] environment assignments = .ok loaded ∧
      settings = settingsFor loaded invocation

/-- The arguments and the environment file are in order and the settings are not. -/
def Misconfigured (around : Surroundings) (args : List String) (complaints : List Complaint) :
    Prop :=
  (∃ invocation, parse args = .ok invocation) ∧ ∃ environment assignments,
    (around.load around.environment).result = .ok environment ∧
      (around.assign environment).result = .ok assignments ∧
      Settings.load [] environment assignments = .error complaints

/-- What is let out before anything is looked up: a failure to say how the program is used, to load
the environment file, to read it again for the settings, or to print what is wrong with these. -/
inductive Stopped (around : Surroundings) (args : List String) : Failure → Prop where
  | help {text : String} {f : Failure} (hparse : parse args = .error (.help text))
    (hput : (put around.output text).2 = some f) (hpassed : isPassedOver f = false) :
    Stopped around args f
  | usage {text : String} {f : Failure} (hparse : parse args = .error (.refused text))
    (hput : (put around.errors text).2 = some f) (hpassed : isPassedOver f = false) :
    Stopped around args f
  | loading {invocation : Invocation} {f : Failure} (hparse : parse args = .ok invocation)
    (hload : (around.load around.environment).result = .error f) : Stopped around args f
  | reading {invocation : Invocation} {environment : Environment} {f : Failure}
    (hparse : parse args = .ok invocation)
    (hload : (around.load around.environment).result = .ok environment)
    (hassign : (around.assign environment).result = .error f) : Stopped around args f
  | complaint {complaints : List Complaint} {f : Failure} (h : Misconfigured around args complaints)
    (hput : (put around.errors (complaintText complaints)).2 = some f) : Stopped around args f

/-- What is let out once keys are looked up: a failure of setting up, one to print the profiles that
is not reported, or one to list the other keys. -/
inductive Unreported (r : Resources σ) (around : Surroundings) (invocation : Invocation)
    (settings : Settings) (s : σ) : Failure → Prop where
  | setup {f : Failure} (hescapes : Pipeline.Escapes r settings s f) :
    Unreported r around invocation settings s f
  | output {ps : List Profile} {f : Failure}
    (hfound : ((lookUp r settings invocation.keys).run s).result = .ok ps)
    (hput : (put around.output (printed ps invocation.json)).2 = some f)
    (hsilent : ¬ f.Reported) : Unreported r around invocation settings s f
  | listing {ps : List Profile} {f : Failure}
    (hfound : ((lookUp r settings invocation.keys).run s).result = .ok ps)
    (hput : (put around.output (printed ps invocation.json)).2 = none)
    (hlist : (put around.errors
      (unresolvedLine (unresolved invocation.keys ps settings.caseSensitive))).2 = some f) :
    Unreported r around invocation settings s f

/-- How a run ends: with status two just if the arguments are refused, with status one just if the
settings are or if the lookup, or printing what it found, fails in a way that is reported. The
failures that may be caught and are let out are those named above, and no other. -/
structure EndsInOrder (r : Resources σ) (around : Surroundings) (args : List String) (s : σ)
    (finish : Finish) : Prop where
  refused_iff : finish.status = 2 ↔ ∃ text, parse args = .error (.refused text) ∧
    ∀ f, (put around.errors text).2 = some f → isPassedOver f = true
  failed_iff : finish.status = 1 ↔ (∃ complaints, Misconfigured around args complaints ∧
      (put around.errors (complaintText complaints)).2 = none) ∨
    ∃ invocation settings, Begins around args invocation settings ∧ ∃ f,
      Failed around invocation ((lookUp r settings invocation.keys).run s).result f ∧ f.Reported
  status_le : finish.status ≤ 2
  uncaught_iff : ∀ f, f.isOrdinary = true → (finish.uncaught = some f ↔ Stopped around args f ∨
    ∃ invocation settings, Begins around args invocation settings ∧
      Unreported r around invocation settings s f)

/-- The environment file can be read and everything can be printed. -/
structure Clear (around : Surroundings) : Prop where
  load : ∀ environment f, (around.load environment).result ≠ .error f
  assign : ∀ environment f, (around.assign environment).result ≠ .error f
  output : ∀ text, around.output text = none
  errors : ∀ text, around.errors text = none

variable {around : Surroundings} {args : List String} {invocation : Invocation}

/-- With arguments that are in order, a run is stopped by the environment file or while complaints
are printed. -/
theorem stopped_iff_of_ok (hparse : parse args = .ok invocation) :
    Stopped around args f ↔ (around.load around.environment).result = .error f ∨
      (∃ environment, (around.load around.environment).result = .ok environment ∧
        (around.assign environment).result = .error f) ∨
      ∃ complaints, Misconfigured around args complaints ∧
        (put around.errors (complaintText complaints)).2 = some f := by
  constructor
  · intro h
    cases h with
    | help hparse' => cases hparse.symm.trans hparse'
    | usage hparse' => cases hparse.symm.trans hparse'
    | loading _ hload => exact Or.inl hload
    | reading _ hload hassign => exact Or.inr (Or.inl ⟨_, hload, hassign⟩)
    | complaint hwrong hput => exact Or.inr (Or.inr ⟨_, hwrong, hput⟩)
  · rintro (hload | ⟨_, hload, hassign⟩ | ⟨_, hwrong, hput⟩)
    · exact .loading hparse hload
    · exact .reading hparse hload hassign
    · exact .complaint hwrong hput

theorem put_of_clear {refused : String → Option Failure} (h : ∀ text, refused text = none)
    (text : String) : (put refused text).2 = none := by
  rw [put_snd, h, ite_self]

theorem Clear.not_stopped (h : Clear around) : ¬ Stopped around args f := by
  intro hstopped
  cases hstopped with
  | @help text _ _ hput =>
    rw [put_of_clear h.output text] at hput
    cases hput
  | @usage text _ _ hput =>
    rw [put_of_clear h.errors text] at hput
    cases hput
  | loading _ hload => exact h.load _ _ hload
  | reading _ _ hassign => exact h.assign _ _ hassign
  | complaint _ hput =>
    rw [put_of_clear h.errors _] at hput
    cases hput

theorem Clear.unreported_iff (h : Clear around) :
    Unreported r around invocation settings s f ↔ Pipeline.Escapes r settings s f := by
  refine ⟨fun hunreported => ?_, .setup⟩
  cases hunreported with
  | setup hescapes => exact hescapes
  | output _ hput =>
    rw [put_of_clear h.output _] at hput
    cases hput
  | listing _ _ hlist =>
    rw [put_of_clear h.errors _] at hlist
    cases hlist

theorem EndsInOrder.uncaught_iff_of_clear {finish : Finish} (h : EndsInOrder r around args s finish)
    (hclear : Clear around) (hf : f.isOrdinary = true) :
    finish.uncaught = some f ↔ ∃ invocation settings, Begins around args invocation settings ∧
      Pipeline.Escapes r settings s f := by
  rw [h.uncaught_iff f hf, or_iff_right hclear.not_stopped]
  simp only [hclear.unreported_iff]

theorem Begins.exists_iff (h : Begins around args invocation settings)
    (P : Invocation → Settings → Prop) :
    (∃ invocation settings, Begins around args invocation settings ∧ P invocation settings) ↔
      P invocation settings := by
  refine ⟨?_, fun hP => ⟨invocation, settings, h, hP⟩⟩
  rintro ⟨other, others, ⟨hparse, _, _, _, hload, hassign, hset, rfl⟩, hP⟩
  obtain ⟨hparse', _, _, _, hload', hassign', hset', rfl⟩ := h
  obtain rfl := Except.ok.inj (hparse.symm.trans hparse')
  obtain rfl := Except.ok.inj (hload.symm.trans hload')
  obtain rfl := Except.ok.inj (hassign.symm.trans hassign')
  obtain rfl := Except.ok.inj (hset.symm.trans hset')
  exact hP

theorem Begins.configured (h : Begins around args invocation settings)
    (complaints : List Complaint) : ¬ Misconfigured around args complaints := by
  obtain ⟨-, _, _, _, hload, hassign, hset, -⟩ := h
  rintro ⟨-, _, _, hload', hassign', hcomplaints⟩
  obtain rfl := Except.ok.inj (hload.symm.trans hload')
  obtain rfl := Except.ok.inj (hassign.symm.trans hassign')
  rw [hset] at hcomplaints
  cases hcomplaints

theorem Begins.not_stopped (h : Begins around args invocation settings) :
    ¬ Stopped around args f := by
  rw [stopped_iff_of_ok h.1]
  rintro (hload' | ⟨_, hload', hassign'⟩ | ⟨complaints, hwrong, -⟩)
  · obtain ⟨-, _, _, _, hload, -⟩ := h
    cases hload.symm.trans hload'
  · obtain ⟨-, _, _, _, hload, hassign, -⟩ := h
    obtain rfl := Except.ok.inj (hload.symm.trans hload')
    cases hassign.symm.trans hassign'
  · exact h.configured complaints hwrong

theorem run_of_loaded {environment : Environment} (hparse : parse args = .ok invocation)
    (hload : (around.load around.environment).result = .ok environment) :
    run r around args =
      configure r around environment invocation (around.load around.environment).warnings := by
  unfold run
  rw [hparse]
  dsimp only
  rw [hload]

theorem Begins.run (h : Begins around args invocation settings) (r : Resources σ) (s : σ) :
    ∃ setup log, ((run r around args).run s).result =
      .ok (finishLookup around setup invocation settings.caseSensitive log
        ((lookUp r settings invocation.keys).run s).result) := by
  obtain ⟨hparse, environment, assignments, loaded, hload, hassign, hset, rfl⟩ := h
  rw [run_of_loaded hparse hload]
  unfold configure
  dsimp only
  rw [hassign]
  dsimp only
  rw [hset]
  exact ⟨setupFor loaded invocation, _, rfl⟩

/-- Of failures that may be caught, those are let out of a lookup that are not reported. -/
theorem Begins.unreported_iff (hprepare : ∀ p, (r.prepare p).FailsOnly fun _ => False)
    (hf : f.isOrdinary = true) :
    ((Failed around invocation ((lookUp r settings invocation.keys).run s).result f ∧
        ¬ f.Reported) ∨
      ∃ ps, ((lookUp r settings invocation.keys).run s).result = .ok ps ∧
        (put around.output (printed ps invocation.json)).2 = none ∧
        (put around.errors
          (unresolvedLine (unresolved invocation.keys ps settings.caseSensitive))).2 = some f) ↔
      Unreported r around invocation settings s f := by
  constructor
  · rintro (⟨hfailed, hsilent⟩ | ⟨ps, hfound, hput, hlist⟩)
    · cases hresult : ((lookUp r settings invocation.keys).run s).result with
      | error g =>
        rw [hresult] at hfailed
        cases hfailed
        exact .setup ((lookUp_escapes_iff hprepare hf).mp ⟨hresult, hsilent⟩)
      | ok ps =>
        rw [hresult] at hfailed
        cases hfailed with
        | output hput => exact .output hresult hput hsilent
    · exact .listing hfound hput hlist
  · intro h
    cases h with
    | setup hescapes =>
      rw [lookUp_of_escapes hescapes]
      exact Or.inl ⟨.lookup _, hescapes.not_reported⟩
    | output hfound hput hsilent =>
      rw [hfound]
      exact Or.inl ⟨.output hput, hsilent⟩
    | listing hfound hput hlist => exact Or.inr ⟨_, hfound, hput, hlist⟩

/-- A run that looks keys up reports what it should, and lets out what it cannot report. -/
theorem endsInOrder_of_begins (hprepare : ∀ p, (r.prepare p).FailsOnly fun _ => False)
    (h : Begins around args invocation settings) (setup : Log.Setup) (log : String) :
    EndsInOrder r around args s (finishLookup around setup invocation settings.caseSensitive log
      ((lookUp r settings invocation.keys).run s).result) := by
  obtain ⟨hle, hfailed⟩ := finishLookup_status around setup invocation settings.caseSensitive log
    ((lookUp r settings invocation.keys).run s).result
  refine ⟨iff_of_false (by omega) ?_, ?_, hle.trans (Nat.le_succ 1), fun f hf => ?_⟩
  · rintro ⟨_, htext, -⟩
    cases h.1.symm.trans htext
  · rw [hfailed, h.exists_iff fun invocation settings => ∃ f,
      Failed around invocation ((lookUp r settings invocation.keys).run s).result f ∧ f.Reported]
    exact (or_iff_right fun ⟨complaints, hwrong, _⟩ => h.configured complaints hwrong).symm
  · rw [finishLookup_uncaught_iff, Begins.unreported_iff hprepare hf, or_iff_right h.not_stopped,
      h.exists_iff fun invocation settings => Unreported r around invocation settings s f]

theorem endsInOrder_of_not_begins {finish : Finish}
    (hbegins : ∀ invocation settings, ¬ Begins around args invocation settings)
    (hrefused : finish.status = 2 ↔ ∃ text, parse args = .error (.refused text) ∧
      ∀ f, (put around.errors text).2 = some f → isPassedOver f = true)
    (hfailed : finish.status = 1 ↔ ∃ complaints, Misconfigured around args complaints ∧
      (put around.errors (complaintText complaints)).2 = none)
    (hle : finish.status ≤ 2)
    (huncaught : ∀ f, finish.uncaught = some f ↔ Stopped around args f) :
    EndsInOrder r around args s finish := by
  refine ⟨hrefused, hfailed.trans ⟨Or.inl, ?_⟩, hle, fun f _ => (huncaught f).trans ⟨Or.inl, ?_⟩⟩
  · rintro (hwrong | ⟨invocation, settings, h, -⟩)
    · exact hwrong
    · exact absurd h (hbegins invocation settings)
  · rintro (hstopped | ⟨invocation, settings, h, -⟩)
    · exact hstopped
    · exact absurd h (hbegins invocation settings)

/-- A run whose arguments are not in order lets out what it cannot say about its use. -/
theorem endsInOrder_of_error {usage : Ending} {finish : Finish}
    (hparse : parse args = .error usage) (hle : finish.status ≤ 2)
    (hrefused : finish.status = 2 ↔ ∃ text, usage = .refused text ∧
      ∀ f, (put around.errors text).2 = some f → isPassedOver f = true)
    (hne : finish.status ≠ 1)
    (huncaught : ∀ f, finish.uncaught = some f ↔ isPassedOver f = false ∧
      ((∃ text, usage = .help text ∧ (put around.output text).2 = some f) ∨
        ∃ text, usage = .refused text ∧ (put around.errors text).2 = some f)) :
    EndsInOrder r around args s finish := by
  refine endsInOrder_of_not_begins (fun _ _ h => by cases hparse.symm.trans h.1) ?_
    (iff_of_false hne ?_) hle fun f => (huncaught f).trans ⟨?_, fun h => ?_⟩
  · simp only [hrefused, hparse, Except.error.injEq]
  · rintro ⟨_, ⟨⟨_, h⟩, -⟩, -⟩
    cases hparse.symm.trans h
  · rintro ⟨hpassed, ⟨text, rfl, hput⟩ | ⟨text, rfl, hput⟩⟩
    · exact .help hparse hput hpassed
    · exact .usage hparse hput hpassed
  · cases h with
    | help hparse' hput hpassed =>
      exact ⟨hpassed, Or.inl ⟨_, Except.error.inj (hparse.symm.trans hparse'), hput⟩⟩
    | usage hparse' hput hpassed =>
      exact ⟨hpassed, Or.inr ⟨_, Except.error.inj (hparse.symm.trans hparse'), hput⟩⟩
    | loading hparse' => cases hparse.symm.trans hparse'
    | reading hparse' => cases hparse.symm.trans hparse'
    | complaint hwrong =>
      obtain ⟨⟨_, hparse'⟩, -⟩ := hwrong
      cases hparse.symm.trans hparse'

theorem endsInOrder_of_help {text : String} (hparse : parse args = .error (.help text)) :
    ∃ finish, ((run r around args).run s).result = .ok finish ∧
      EndsInOrder r around args s finish := by
  have hrun : ((run r around args).run s).result = .ok (ending 0 (put around.output text).1 ""
      ((put around.output text).2.filter (!isPassedOver ·))) := by
    unfold run
    rw [hparse]
    rfl
  have hle := ending_status_le 0 (put around.output text).1 ""
    ((put around.output text).2.filter (!isPassedOver ·))
  refine ⟨_, hrun, endsInOrder_of_error hparse (by omega) (iff_of_false (by omega) ?_) (by omega)
    fun f => let_out_iff.trans ?_⟩
  · rintro ⟨_, h, -⟩
    cases h
  · simp [and_comm]

theorem endsInOrder_of_usage {text : String} (hparse : parse args = .error (.refused text)) :
    ∃ finish, ((run r around args).run s).result = .ok finish ∧
      EndsInOrder r around args s finish := by
  have hrun : ((run r around args).run s).result = .ok (ending 2 "" (put around.errors text).1
      ((put around.errors text).2.filter (!isPassedOver ·))) := by
    unfold run
    rw [hparse]
    rfl
  refine ⟨_, hrun, endsInOrder_of_error hparse (ending_status_le 2 ..)
    ((ending_status_iff (by decide)).trans (passed_over_iff.trans ?_)) ?_
    fun f => let_out_iff.trans ?_⟩
  · simp
  · cases (put around.errors text).2.filter (!isPassedOver ·) <;> exact nofun
  · simp [and_comm]

theorem endsInOrder_of_file {finish : Finish} {g : Failure} (hparse : parse args = .ok invocation)
    (hfile : ∀ environment assignments,
      (around.load around.environment).result = .ok environment →
      (around.assign environment).result ≠ .ok assignments)
    (hstatus : finish.status = 0) (huncaught : finish.uncaught = some g)
    (hstopped : ∀ f, Stopped around args f ↔ g = f) : EndsInOrder r around args s finish := by
  refine endsInOrder_of_not_begins ?_ (iff_of_false (by omega) ?_) (iff_of_false (by omega) ?_)
    (by omega) fun f => ?_
  · rintro _ _ ⟨-, environment, assignments, _, hload, hassign, -⟩
    exact hfile environment assignments hload hassign
  · rintro ⟨_, h, -⟩
    cases hparse.symm.trans h
  · rintro ⟨_, ⟨-, environment, assignments, hload, hassign, -⟩, -⟩
    exact hfile environment assignments hload hassign
  · rw [huncaught, hstopped, Option.some.injEq]

theorem endsInOrder_of_complaints {environment : Environment}
    {assignments : List (String × Option String)} {complaints : List Complaint}
    (hparse : parse args = .ok invocation)
    (hload : (around.load around.environment).result = .ok environment)
    (hassign : (around.assign environment).result = .ok assignments)
    (hset : Settings.load [] environment assignments = .error complaints) :
    ∃ finish, ((run r around args).run s).result = .ok finish ∧
      EndsInOrder r around args s finish := by
  have hwrong : ∀ others, Misconfigured around args others ↔ others = complaints := by
    refine fun others => ⟨?_, fun h => h ▸ ⟨⟨_, hparse⟩, _, _, hload, hassign, hset⟩⟩
    rintro ⟨-, _, _, hload', hassign', hset'⟩
    obtain rfl := Except.ok.inj (hload.symm.trans hload')
    obtain rfl := Except.ok.inj (hassign.symm.trans hassign')
    exact Except.error.inj (hset'.symm.trans hset)
  have hrun : ((run r around args).run s).result = .ok (ending 1 ""
      ((around.load around.environment).warnings ++ (around.assign environment).warnings ++
        (put around.errors (complaintText complaints)).1)
      (put around.errors (complaintText complaints)).2) := by
    rw [run_of_loaded hparse hload]
    unfold configure
    dsimp only
    rw [hassign]
    dsimp only
    rw [hset]
    rfl
  have hle := ending_status_le 1 "" ((around.load around.environment).warnings ++
    (around.assign environment).warnings ++ (put around.errors (complaintText complaints)).1)
    (put around.errors (complaintText complaints)).2
  refine ⟨_, hrun, endsInOrder_of_not_begins ?_ (iff_of_false (by omega) ?_)
    ((ending_status_iff (by decide)).trans ?_) (by omega) fun f => ?_⟩
  · exact fun _ _ h => h.configured complaints ((hwrong complaints).mpr rfl)
  · rintro ⟨_, h, -⟩
    cases hparse.symm.trans h
  · simp only [hwrong, exists_eq_left]
  · simp only [stopped_iff_of_ok hparse, hload, hwrong, exists_eq_left, reduceCtorEq, false_or,
      Except.ok.injEq, exists_eq_left', hassign]
    rfl

namespace Escaping

def surroundings (environment : Environment) : Surroundings :=
  ⟨environment, fun environment => ⟨"", .ok environment⟩, fun _ => ⟨"", .ok []⟩, fun _ => none,
    fun _ => none, ⟨2024, 12, 31, 23, 59, 59⟩, Failure.message⟩

def longDelay : Environment :=
  [("PROFILE_RESOLVER_RETRY_DELAY_MS", String.ofList ('1' :: List.replicate 312 '0'))]

def names : List String := ["names", "Ash"]

def namesWithCache : List String := ["names", "Ash", "--cache", "a\x00b"]

theorem clear (environment : Environment) : Clear (surroundings environment) :=
  ⟨nofun, nofun, fun _ => rfl, fun _ => rfl⟩

end Escaping

theorem exists_begins {environment : Environment} {args : List String}
    {P : Settings → Prop} [DecidablePred P] (h : ((parse args).toOption.bind fun invocation =>
      (Settings.load [] environment []).toOption.map fun loaded =>
        decide (P (settingsFor loaded invocation))) = some true) :
    ∃ invocation settings, Begins (Escaping.surroundings environment) args invocation settings ∧
      P settings := by
  obtain ⟨invocation, hparse, h⟩ := Option.bind_eq_some_iff.mp h
  obtain ⟨loaded, hload, hP⟩ := Option.map_eq_some_iff.mp h
  exact ⟨invocation, settingsFor loaded invocation, ⟨Except.eq_ok_of_toOption hparse, environment,
    [], loaded, rfl, rfl, Except.eq_ok_of_toOption hload, rfl⟩, of_decide_eq_true hP⟩

theorem Begins.uncaught (h : Begins around args invocation settings)
    (hescapes : Pipeline.Escapes r settings s f) :
    ∃ finish, ((CommandLine.run r around args).run s).result = .ok finish ∧
      finish.uncaught = some f := by
  obtain ⟨setup, log, hrun⟩ := h.run r s
  rw [lookUp_of_escapes hescapes] at hrun
  exact ⟨_, hrun, (finishLookup_uncaught_iff ..).mpr (Or.inl ⟨.lookup f, hescapes.not_reported⟩)⟩

end PlayerLookup.CommandLine
